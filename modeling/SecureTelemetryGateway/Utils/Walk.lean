import SecureTelemetryGateway.Utils.ConfigManager

/-!
# The walk down a copy

`navigate_path` redirects every node it leaves, which shows only where the path
comes to one of them again, or ends above one. Otherwise it comes to the node
that following the segments through the document comes to.
-/

namespace SecureTelemetryGateway.Utils

open Lib

/-- `left` are the maps the path has left for another node. None of them is
looked into again, and none is under the value the path ends on. -/
def LeftForGood (g : Graph Bytes) (left : List Nat) (n : Nat) : List Bytes → Prop
  | [] => ∀ k ∈ left, ¬g.Reach n k
  | key :: path => n ∉ left ∧ ∀ m, g.member n key = some m →
      LeftForGood g (if m = n then left else n :: left) m path

theorem reach_le {g : Graph Bytes} (h : ∀ n m, g.Child n m → n < m) (hr : g.Reach n m) :
    n ≤ m := by
  induction hr with
  | refl => exact le_rfl
  | tail _ hchild ih => exact ih.trans (h _ _ hchild).le

/-- Where there are no recursive aliases, nothing leads back. -/
theorem leftForGood_of_acyclic {g : Graph Bytes} (h : ∀ n m, g.Child n m → ¬g.Reach m n)
    (hleft : ∀ k ∈ left, ¬g.Reach n k) (path : List Bytes) : LeftForGood g left n path := by
  induction path generalizing left n with
  | nil => exact hleft
  | cons key path ih =>
    refine ⟨fun hn => hleft n hn .refl, fun m hm => ih ?_⟩
    have hchild := Graph.child_of_member hm
    have hrest : ∀ k ∈ left, ¬g.Reach m k := fun k hk hr => hleft k hk (.head hchild hr)
    split
    · exact hrest
    · exact List.forall_mem_cons.mpr ⟨h n m hchild, hrest⟩

-- ---------------------------------------------------------------------------
-- Segments
-- ---------------------------------------------------------------------------

def dotted (path : List Bytes) : Bytes := [dot].intercalate path

def IsSegment (segment : Bytes) : Prop := segment ≠ [] ∧ dot ∉ segment

theorem segmentsFrom_append {segment : Bytes} (h : dot ∉ segment) (read rest : Bytes) :
    segmentsFrom read (segment ++ rest) = segmentsFrom (read ++ segment) rest := by
  induction segment generalizing read with
  | nil => simp
  | cons c segment ih =>
    obtain ⟨hc, hsegment⟩ : dot ≠ c ∧ dot ∉ segment := by simpa using h
    rw [List.cons_append, segmentsFrom, if_neg (Ne.symm hc), ih hsegment]
    simp

theorem segmentsFrom_dotted (hp : ∀ segment ∈ path, IsSegment segment) :
    segmentsFrom [] (dotted path) = path := by
  induction path with
  | nil => rfl
  | cons segment path ih =>
    obtain ⟨⟨hne, hdot⟩, hrest⟩ := List.forall_mem_cons.mp hp
    cases path with
    | nil =>
      have happend := segmentsFrom_append hdot [] []
      rw [List.append_nil, List.nil_append] at happend
      rw [dotted, List.intercalate_singleton, happend, segmentsFrom, if_neg hne]
    | cons next path =>
      rw [dotted, List.intercalate_cons_cons, List.append_assoc, segmentsFrom_append hdot]
      show segment :: segmentsFrom [] (dotted (next :: path)) = _
      rw [ih hrest]

-- ---------------------------------------------------------------------------
-- The walk
-- ---------------------------------------------------------------------------

variable {memory : NodeHeap Bytes} {g : Graph Bytes}

theorem walk_undefined (h : memory.graph node = none) (path : List Bytes) :
    ∃ node', walk memory node path = (.ok node', memory) ∧
      ∀ n, node' = some n → memory.graph n = none := by
  cases path with
  | nil =>
    refine ⟨some node, rfl, fun n hn => ?_⟩
    cases hn
    exact h
  | cons segment rest => exact ⟨none, by simp [walk, isDefined, h], nofun⟩

theorem graph_assign (memory : NodeHeap Bytes) (node value : Nat) :
    (memory.assign node value).2.graph (memory.assign node value).1 = memory.graph value := by
  unfold NodeHeap.assign
  split
  · next h => simp [NodeHeap.graph, h]
  · by_cases h : value = node
    · simp [NodeHeap.graph, h]
    · simp [NodeHeap.graph, Function.update_of_ne h]

/-- The walk has come to `n`: the places of the document are as they were, and
of its nodes only those in `left` have been redirected, maps to maps or to
`n`. -/
structure Walked (memory : NodeHeap Bytes) (g : Graph Bytes) (offset : Nat) (S : Set Nat)
    (left : List Nat) (n : Nat) : Prop where
  mem : n ∈ S
  closed : ∀ i ∈ S, ∀ j, g.Child i j → j ∈ S
  data : ∀ i ∈ S, offset + i < memory.next ∧
    memory.data (offset + i) = (g i).map (Content.rename (offset + ·))
  ref : ∀ i ∈ S, i ∉ left → memory.ref (offset + i) = offset + i
  redirected : ∀ i ∈ left, g.IsMap i ∧
    ∃ j ∈ S, memory.ref (offset + i) = offset + j ∧ (j = n ∨ g.IsMap j)

namespace Walked

variable {S : Set Nat}

theorem start (h : memory.Holds g offset S) (hc : ∀ i ∈ S, ∀ j, g.Child i j → j ∈ S)
    (hn : n ∈ S) : Walked memory g offset S [] n where
  mem := hn
  closed := hc
  data i hi := ⟨(h i hi).1, (h i hi).2.2⟩
  ref i hi _ := (h i hi).2.1
  redirected := nofun

theorem content (h : Walked memory g offset S left n) (hi : i ∈ S) (hleft : i ∉ left) :
    memory.graph (offset + i) = (g i).map (Content.rename (offset + ·)) := by
  show memory.data (memory.ref (offset + i)) = _
  rw [h.ref i hi hleft, (h.data i hi).2]

theorem isScalar (h : Walked memory g offset S left n) (hmap : g.IsMap n) (hi : i ∈ S)
    (text : Bytes) : memory.graph.isScalar text (offset + i) = g.isScalar text i := by
  by_cases hleft : i ∈ left
  · obtain ⟨hi, j, hj, href, hto⟩ := h.redirected i hleft
    have hjmap : g.IsMap j := hto.elim (fun heq => heq.symm ▸ hmap) id
    have hmemory : memory.graph.IsMap (offset + i) := by
      obtain ⟨entries, hentries⟩ := hjmap
      refine ⟨entries.map (Prod.map (offset + ·) (offset + ·)), ?_⟩
      show memory.data (memory.ref (offset + i)) = _
      rw [href, (h.data j hj).2, hentries]
      rfl
    rw [Graph.isScalar_of_isMap hmemory, Graph.isScalar_of_isMap hi]
  · exact Graph.isScalar_of_content (h.content hi hleft) text

theorem member (h : Walked memory g offset S left n) (hleft : n ∉ left) (hmap : g.IsMap n)
    (key : Bytes) : memory.graph.member (offset + n) key = (g.member n key).map (offset + ·) :=
  Graph.member_of_content (h.content h.mem hleft) fun m hm =>
    h.isScalar hmap (h.closed n h.mem m hm) key

theorem assign (h : Walked memory g offset S left n) (hleft : n ∉ left)
    (hm : g.member n key = some m) (hm' : m ∉ if m = n then left else n :: left) :
    (memory.assign (offset + n) (offset + m)).1 = offset + m ∧
      Walked (memory.assign (offset + n) (offset + m)).2 g offset S
        (if m = n then left else n :: left) m := by
  have hmap := Graph.isMap_of_member hm
  have hmS := h.closed n h.mem m (Graph.child_of_member hm)
  by_cases heq : m = n
  · subst heq
    simpa [NodeHeap.assign] using h
  · rw [if_neg heq] at hm' ⊢
    obtain ⟨-, hmleft⟩ : m ≠ n ∧ m ∉ left := by simpa using hm'
    have hrefn := h.ref n h.mem hleft
    have hrefm := h.ref m hmS hmleft
    have hne : ¬memory.ref (offset + n) = memory.ref (offset + m) := by
      rw [hrefn, hrefm]
      omega
    have hother : ∀ i, i ≠ n → offset + i ≠ offset + n := by omega
    simp only [NodeHeap.assign, if_neg hne]
    refine ⟨trivial, hmS, h.closed, h.data, ?_,
      List.forall_mem_cons.mpr ⟨⟨hmap, m, hmS, ?_, .inl rfl⟩, ?_⟩⟩
    · intro i hi hin
      obtain ⟨hin, hileft⟩ : i ≠ n ∧ i ∉ left := by simpa using hin
      rw [← h.ref i hi hileft]
      simp [Function.update_of_ne (hother i hin), h.ref i hi hileft]
    · simp [hrefm]
    · intro i hileft
      obtain ⟨himap, j, hj, href, hto⟩ := h.redirected i hileft
      have hin : i ≠ n := fun heq => hleft (heq ▸ hileft)
      refine ⟨himap, j, hj, ?_, .inr (hto.elim (fun heq => heq.symm ▸ hmap) id)⟩
      simpa [Function.update_of_ne (hother i hin)] using href

end Walked

theorem walk_of_not_map (h : isMap memory node = false) (key : Bytes) (path : List Bytes) :
    walk memory node (key :: path) = (.ok none, memory) := by
  simp [walk, h]

theorem isMap_eq_true : isMap memory node = true ↔ memory.graph.IsMap node := by
  unfold isMap Graph.IsMap
  cases memory.graph node with
  | none => simp
  | some content => cases content <;> simp

theorem walk_of_map (h : isMap memory node = true)
    (hi : memory.index node key = some (value, memory')) (path : List Bytes) :
    walk memory node (key :: path) =
      walk (memory'.assign node value).2 (memory'.assign node value).1 path := by
  obtain ⟨entries, hmap⟩ := isMap_eq_true.mp h
  simp [walk, isDefined, h, hmap, hi]

theorem LeftForGood.notMem (h : LeftForGood g left n path) : n ∉ left := by
  cases path with
  | nil => exact fun hn => h n hn .refl
  | cons key path => exact h.1

theorem walk_spec {S : Set Nat} (h : Walked memory g offset S left n)
    (hw : LeftForGood g left n path) :
    ∃ node memory', walk memory (offset + n) path = (.ok node, memory') ∧
      match g.follow n path with
      | some m => node = some (offset + m) ∧
        Embedding g memory'.graph (offset + ·) {i | g.Reach m i}
      | none => ∀ i, node = some i → memory'.graph i = none := by
  induction path generalizing memory n left with
  | nil =>
    have hreach : ∀ i, g.Reach n i → i ∈ S := by
      intro i hi
      induction hi with
      | refl => exact h.mem
      | tail _ hchild ih => exact h.closed _ ih _ hchild
    exact ⟨_, _, rfl, rfl, fun i hi j hj => hi.tail hj, fun i hi =>
      h.content (hreach i hi) fun hleft => hw i hleft hi⟩
  | cons key path ih =>
    have hcontent := h.content h.mem hw.1
    cases hmap : isMap memory (offset + n) with
    | false =>
      have hnone : g.member n key = none := by
        cases hm : g.member n key with
        | none => rfl
        | some m =>
          have hmemory := (Graph.isMap_of_content hcontent).mpr (Graph.isMap_of_member hm)
          rw [isMap_eq_true.mpr hmemory] at hmap
          cases hmap
      refine ⟨none, memory, walk_of_not_map hmap key path, ?_⟩
      simp [Graph.follow, hnone]
    | true =>
      obtain ⟨entries, hentries⟩ := isMap_eq_true.mp hmap
      have hgmap : g.IsMap n := (Graph.isMap_of_content hcontent).mp ⟨entries, hentries⟩
      have hmember := h.member hw.1 hgmap key
      cases hm : g.member n key with
      | some m =>
        rw [hm, Option.map_some] at hmember
        have hrest := hw.2 m hm
        obtain ⟨hnode, hwalked⟩ := h.assign hw.1 hm hrest.notMem
        obtain ⟨node, memory', hwalk, hspec⟩ := ih hwalked hrest
        rw [walk_of_map hmap (NodeHeap.index_of_member hmember), hnode]
        exact ⟨node, memory', hwalk, by simpa [Graph.follow, hm] using hspec⟩
      | none =>
        rw [hm, Option.map_none] at hmember
        have hlt := (h.data n h.mem).1
        have href := h.ref n h.mem hw.1
        obtain ⟨memory₁, hindex, hundefined⟩ :=
          NodeHeap.index_of_missing hentries hmember (by omega)
        have hnode := graph_assign memory₁ (offset + n) (memory.next + 1)
        obtain ⟨node, hwalk, hnone⟩ := walk_undefined (hnode.trans hundefined) path
        refine ⟨node, (memory₁.assign (offset + n) (memory.next + 1)).2, ?_, ?_⟩
        · rw [walk_of_map hmap hindex, hwalk]
        · simpa [Graph.follow, hm] using hnone

theorem walk_confined {before : NodeHeap Bytes} (h : NodeHeap.Confined bound before memory)
    (hnode : bound ≤ node) (path : List Bytes) :
    NodeHeap.Confined bound before (walk memory node path).2 := by
  induction path generalizing memory node with
  | nil => exact h
  | cons key path ih =>
    cases hmap : isMap memory node with
    | false =>
      rw [walk_of_not_map hmap]
      exact h
    | true =>
      obtain ⟨value, memory', hindex⟩ : ∃ value memory',
          memory.index node key = some (value, memory') := by
        obtain ⟨entries, hentries⟩ := isMap_eq_true.mp hmap
        unfold NodeHeap.index
        rw [hentries]
        dsimp only
        split <;> exact ⟨_, _, rfl⟩
      obtain ⟨hvalue, hindexed⟩ := h.index hnode hindex
      obtain ⟨hnode', hassigned⟩ := hindexed.assign hnode hvalue
      rw [walk_of_map hmap hindex]
      exact ih hassigned hnode'

end SecureTelemetryGateway.Utils
