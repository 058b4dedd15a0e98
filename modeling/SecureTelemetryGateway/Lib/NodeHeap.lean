import Mathlib.Logic.Function.Basic
import SecureTelemetryGateway.Lib.NodeGraph

/-!
# Nodes with reference semantics

A memory of nodes that refer to places, where the contents are. Assigning to a
node redirects it, for everyone who holds it. A lookup that creates what it does
not find and a copy are the other operations.
-/

namespace Lib

structure NodeHeap (α : Type u) where
  ref : Nat → Nat := id
  data : Nat → Option (Content α) := fun _ => none
  next : Nat := 0

namespace NodeHeap

def graph (h : NodeHeap α) : Graph α := fun n => h.data (h.ref n)

-- ---------------------------------------------------------------------------
-- Operations
-- ---------------------------------------------------------------------------

def extend (h : NodeHeap α) (count : Nat) (content : Nat → Option (Content α)) : NodeHeap α where
  ref n := if n < h.next then h.ref n else n
  data place := if place < h.next then h.data place else content (place - h.next)
  next := h.next + count

def load (h : NodeHeap α) (size : Nat) (g : Graph α) : NodeHeap α :=
  h.extend size fun i => (g i).map (Content.rename (h.next + ·))

def copied (h : NodeHeap α) (n : Nat) : Nat := h.next + h.ref n

/-- A copy of every place, with one node for each. -/
def clone (h : NodeHeap α) : NodeHeap α :=
  h.extend h.next fun place => (h.data place).map (Content.rename h.copied)

/-- Assigns `value` to `node`: which node the variable stands for afterwards, and
the memory. Nothing happens where they are the same already. -/
def assign (h : NodeHeap α) (node value : Nat) : Nat × NodeHeap α :=
  if h.ref node = h.ref value then (node, h)
  else (value, { h with ref := Function.update h.ref node (h.ref value) })

/-- The member of a map, an undefined one being added under a key that is not
there. There is none of a node that is no map. -/
def index [DecidableEq α] (h : NodeHeap α) (node : Nat) (key : α) : Option (Nat × NodeHeap α) :=
  match h.graph node with
  | some (.map entries) =>
    match h.graph.member node key with
    | some value => some (value, h)
    | none =>
      let h' := h.extend 2 fun i => if i = 0 then some (.scalar key) else none
      some (h.next + 1, { h' with
        data := Function.update h'.data (h.ref node)
          (some (.map (entries ++ [(h.next, h.next + 1)]))) })
  | _ => none

-- ---------------------------------------------------------------------------
-- Where a graph stands
-- ---------------------------------------------------------------------------

/-- The part `S` of `g` stands in the memory from `offset` on, every node of it
referring to its own place. -/
def Holds (h : NodeHeap α) (g : Graph α) (offset : Nat) (S : Set Nat) : Prop :=
  ∀ i ∈ S, offset + i < h.next ∧ h.ref (offset + i) = offset + i ∧
    h.data (offset + i) = (g i).map (Content.rename (offset + ·))

variable {h h' : NodeHeap α} {g : Graph α} {S : Set Nat}

theorem holds_load (h : NodeHeap α) (size : Nat) (g : Graph α) :
    (h.load size g).Holds g h.next {i | i < size} := by
  intro i hi
  have hi : i < size := hi
  simp [load, extend, hi]

theorem Holds.clone (hh : h.Holds g offset S) (hc : ∀ n ∈ S, ∀ m, g.Child n m → m ∈ S) :
    h.clone.Holds g (h.next + offset) S := by
  intro i hi
  obtain ⟨hlt, href, hdata⟩ := hh i hi
  refine ⟨?_, ?_, ?_⟩
  · show h.next + offset + i < h.next + h.next
    omega
  · show (if h.next + offset + i < h.next then _ else _) = _
    rw [if_neg (by omega)]
  · show (if h.next + offset + i < h.next then _ else _) = _
    rw [if_neg (by omega), show h.next + offset + i - h.next = offset + i by omega, hdata]
    cases hg : g i with
    | none => rfl
    | some content =>
      simp only [Option.map_some, Content.rename_rename, Option.some.injEq]
      refine Content.rename_congr fun n hn => ?_
      have hchild : g.Child i n := by simpa [Graph.Child, Graph.children, hg] using hn
      have hrefn := (hh n (hc i hi n hchild)).2.1
      simp only [Function.comp_apply, copied, hrefn]
      omega

theorem Holds.assign (hh : h.Holds g offset S) (hnode : ∀ i ∈ S, offset + i ≠ node)
    (value : Nat) : (h.assign node value).2.Holds g offset S := by
  intro i hi
  obtain ⟨hlt, href, hdata⟩ := hh i hi
  unfold NodeHeap.assign
  split
  · exact ⟨hlt, href, hdata⟩
  · refine ⟨hlt, ?_, hdata⟩
    rw [← href]
    simp [Function.update_of_ne (hnode i hi), href]

section
variable [DecidableEq α]

theorem index_of_member (hm : h.graph.member node key = some value) :
    h.index node key = some (value, h) := by
  unfold index
  cases hmap : h.graph node with
  | none => simp [Graph.member, hmap] at hm
  | some content =>
    cases content with
    | map entries => simp only [hm]
    | _ => simp [Graph.member, hmap] at hm

theorem index_of_missing (hmap : h.graph node = some (.map entries))
    (hmissing : h.graph.member node key = none) (hplace : h.ref node < h.next) :
    ∃ h', h.index node key = some (h.next + 1, h') ∧ h'.graph (h.next + 1) = none := by
  simp only [index, hmap, hmissing, Option.some.injEq, Prod.mk.injEq, true_and,
    exists_eq_left']
  have hfresh : ¬h.next + 1 < h.next := by omega
  have hne : h.next + 1 ≠ h.ref node := by omega
  simp only [graph, extend, if_neg hfresh, Function.update_of_ne hne]
  simp

end

-- ---------------------------------------------------------------------------
-- What cannot be reached
-- ---------------------------------------------------------------------------

/-- What has changed since `h` lies from `bound` on, and so does everything
that can be reached from there. -/
structure Confined (bound : Nat) (h h' : NodeHeap α) : Prop where
  sameRef : ∀ n < bound, h'.ref n = h.ref n
  sameData : ∀ place < bound, h'.data place = h.data place
  next : bound ≤ h'.next
  ref : ∀ n, bound ≤ n → bound ≤ h'.ref n
  children : ∀ place, bound ≤ place → ∀ content, h'.data place = some content →
    ∀ n ∈ content.children, bound ≤ n

theorem Holds.confined (hh : h.Holds g offset S) (hc : Confined h.next h h') :
    h'.Holds g offset S := by
  intro i hi
  obtain ⟨hlt, href, hdata⟩ := hh i hi
  exact ⟨hlt.trans_le hc.next, (hc.sameRef _ hlt).trans href, (hc.sameData _ hlt).trans hdata⟩

theorem confined_clone (h : NodeHeap α) : Confined h.next h h.clone where
  sameRef n hn := if_pos hn
  sameData place hplace := if_pos hplace
  next := Nat.le_add_right _ _
  ref n hn := by
    show h.next ≤ if n < h.next then _ else n
    rwa [if_neg (by omega)]
  children place hplace content hcontent := by
    have hdata : h.clone.data place =
        (h.data (place - h.next)).map (Content.rename h.copied) := if_neg (by omega)
    rw [hdata, Option.map_eq_some_iff] at hcontent
    obtain ⟨original, -, rfl⟩ := hcontent
    simp only [Content.children_rename, List.forall_mem_map]
    exact fun n _ => Nat.le_add_right _ _

theorem Confined.child (hc : Confined bound h h') (hn : bound ≤ n) (hm : h'.graph.Child n m) :
    bound ≤ m := by
  unfold Graph.Child Graph.children at hm
  cases hg : h'.graph n with
  | none => simp [hg] at hm
  | some content =>
    rw [hg] at hm
    exact hc.children _ (hc.ref n hn) content hg m hm

theorem Confined.assign (hc : Confined bound h h') (hnode : bound ≤ node)
    (hvalue : bound ≤ value) :
    bound ≤ (h'.assign node value).1 ∧ Confined bound h (h'.assign node value).2 := by
  unfold NodeHeap.assign
  split
  · exact ⟨hnode, hc⟩
  · refine ⟨hvalue, ?_, hc.sameData, hc.next, ?_, hc.children⟩
    · intro n hn
      rw [← hc.sameRef n hn]
      exact Function.update_of_ne (by omega) _ _
    · intro n hn
      by_cases heq : n = node
      · subst heq
        simpa using hc.ref value hvalue
      · simpa [Function.update_of_ne heq] using hc.ref n hn

theorem Confined.extend (hc : Confined bound h h') (count : Nat)
    (hcontent : ∀ i content, f i = some content → ∀ n ∈ content.children, bound ≤ n) :
    Confined bound h (h'.extend count f) where
  sameRef n hn := (if_pos (hn.trans_le hc.next)).trans (hc.sameRef n hn)
  sameData place hplace := (if_pos (hplace.trans_le hc.next)).trans (hc.sameData place hplace)
  next := hc.next.trans (Nat.le_add_right _ _)
  ref n hn := by
    show bound ≤ if n < h'.next then h'.ref n else n
    split
    · exact hc.ref n hn
    · exact hn
  children place hplace content hdata := by
    have hdata : (if place < h'.next then h'.data place else f (place - h'.next)) = some content :=
      hdata
    split at hdata
    · exact hc.children place hplace content hdata
    · exact hcontent _ content hdata

theorem Confined.write (hc : Confined bound h h') (hplace : bound ≤ place)
    (hcontent : ∀ n ∈ content.children, bound ≤ n) :
    Confined bound h { h' with data := Function.update h'.data place (some content) } where
  sameRef := hc.sameRef
  sameData p hp := by
    rw [← hc.sameData p hp]
    exact Function.update_of_ne (by omega) _ _
  next := hc.next
  ref := hc.ref
  children p hp content' hdata := by
    by_cases heq : p = place
    · subst heq
      obtain rfl : content = content' := by simpa using hdata
      exact hcontent
    · exact hc.children p hp content' (by simpa [Function.update_of_ne heq] using hdata)

theorem Confined.index [DecidableEq α] (hc : Confined bound h h') (hnode : bound ≤ node)
    (hi : h'.index node key = some (value, h'')) : bound ≤ value ∧ Confined bound h h'' := by
  have hnext := hc.next
  unfold NodeHeap.index at hi
  split at hi
  · next entries hmap =>
    split at hi
    · next m hm =>
      cases hi
      exact ⟨hc.child hnode (Graph.child_of_member hm), hc⟩
    · cases hi
      refine ⟨by omega, (hc.extend 2 ?_).write (hc.ref node hnode) ?_⟩
      · intro i content hcontent
        split at hcontent
        · cases hcontent
          exact nofun
        · cases hcontent
      · intro n hn
        simp only [Content.children, List.flatMap_append, List.mem_append] at hn
        rcases hn with hold | hnew
        · exact hc.children _ (hc.ref node hnode) _ hmap n hold
        · simp only [List.flatMap_singleton, List.mem_cons, List.not_mem_nil, or_false] at hnew
          omega
  · cases hi

end NodeHeap

end Lib
