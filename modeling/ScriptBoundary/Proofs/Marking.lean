import ScriptBoundary.Script.Reachable

/-!
# Marking finds what is reachable

`Heap.mark` is a walk with a work list, and `Reachable` is a least set closed under links. That the
two agree is `mark_iff`. The walk stays inside any set that contains the roots and is closed under
links (`markFrom_inside`), so it marks nothing else; and what it has marked in the end contains the
roots and is closed under links itself (`markFrom_meets`, `markFrom_closed`), so it misses nothing.

The invariant of the second half is about a walk in progress: a cell that is met has its links
either met too or on the work list. It is stated from the end of the walk, where the work list is
empty, so that it can be read without the list.
-/

namespace ScriptBoundary.Script

variable {h : Heap} {met : Array Bool} {work roots : List Ref} {r q : Ref}

theorem markFrom_nil (h : Heap) (met : Array Bool) : markFrom h met [] = met := by
  rw [markFrom]

/-- A cell that was not met yet is met, and its links go on the work list. -/
theorem markFrom_unmet {rest : List Ref} (hr : met[r]? = some false) :
    markFrom h met (r :: rest) = markFrom h (met.setIfInBounds r true) (h.links r ++ rest) := by
  rw [markFrom]
  split
  · rfl
  · next hno => exact absurd hr (hno · )

/-- A cell that was met, or is no cell, is passed over. -/
theorem markFrom_met {rest : List Ref} (hr : met[r]? ≠ some false) :
    markFrom h met (r :: rest) = markFrom h met rest := by
  rw [markFrom]
  split
  · next hyes => exact absurd hyes hr
  · rfl

/-- Meeting a cell: it is met from then on, and nothing else changes. -/
theorem getElem?_meet (hr : met[r]? = some false) (q : Ref) :
    (met.setIfInBounds r true)[q]? = if r = q then some true else met[q]? := by
  rw [Array.getElem?_setIfInBounds]
  split
  · rw [if_pos (Array.getElem?_eq_some_iff.mp hr).1]
  · rfl

/-- The walk meets no cell twice and forgets none. -/
theorem markFrom_keeps (h : Heap) (met : Array Bool) (work : List Ref) :
    (markFrom h met work).size = met.size
      ∧ ∀ q : Ref, met[q]? = some true → (markFrom h met work)[q]? = some true := by
  induction met, work using markFrom.induct h with
  | case1 met =>
    rw [markFrom_nil]
    exact ⟨rfl, fun _ hq => hq⟩
  | case2 met r rest hr ih =>
    rw [markFrom_unmet hr]
    refine ⟨ih.1.trans (Array.size_setIfInBounds ..), fun q hq => ih.2 q ?_⟩
    rw [getElem?_meet hr]
    split
    · rfl
    · exact hq
  | case3 met r rest hr ih =>
    rw [markFrom_met hr]
    exact ih

/-- Whatever is on the work list is met, if it is a cell at all. -/
theorem markFrom_meets (hq : q ∈ work) (hlt : q < met.size) :
    (markFrom h met work)[q]? = some true := by
  induction met, work using markFrom.induct h with
  | case1 met => cases hq
  | case2 met r rest hr ih =>
    rw [markFrom_unmet hr]
    rcases List.mem_cons.mp hq with rfl | hq
    · refine (markFrom_keeps h _ _).2 q ?_
      rw [getElem?_meet hr, if_pos rfl]
    · refine ih (List.mem_append_right _ hq) ?_
      rwa [Array.size_setIfInBounds]
  | case3 met r rest hr ih =>
    rw [markFrom_met hr]
    rcases List.mem_cons.mp hq with rfl | hq
    · -- It is a cell and not unmet, so it was met before.
      refine (markFrom_keeps h met rest).2 q ?_
      rw [Array.getElem?_eq_getElem hlt] at hr ⊢
      cases hb : met[q] with
      | true => rfl
      | false => exact absurd (congrArg some hb) hr
    · exact ih hq hlt

/-- Whatever the walk meets has its links met too. -/
theorem markFrom_closed (hq : (markFrom h met work)[q]? = some true) :
    met[q]? = some true
      ∨ ∀ r ∈ h.links q, r < met.size → (markFrom h met work)[r]? = some true := by
  induction met, work using markFrom.induct h with
  | case1 met =>
    rw [markFrom_nil] at hq
    exact .inl hq
  | case2 met r rest hr ih =>
    rw [markFrom_unmet hr] at hq ⊢
    rcases ih hq with hmet | hlinks
    · rw [getElem?_meet hr] at hmet
      split at hmet
      · next hrq =>
        -- This is the cell met just now: its links are at the head of the work list.
        subst hrq
        refine .inr fun q hq hlt => markFrom_meets (List.mem_append_left _ hq) ?_
        rwa [Array.size_setIfInBounds]
      · exact .inl hmet
    · rw [Array.size_setIfInBounds] at hlinks
      exact .inr hlinks
  | case3 met r rest hr ih =>
    rw [markFrom_met hr] at hq ⊢
    exact ih hq

/-- **The walk stays inside** every set of cells that is closed under links. -/
theorem markFrom_inside {R : Ref → Prop}
    (hclosed : ∀ q r, R q → r ∈ h.links q → r < h.cells.size → R r)
    (hsize : met.size = h.cells.size) (hmet : ∀ q : Ref, met[q]? = some true → R q)
    (hwork : ∀ q ∈ work, q < h.cells.size → R q)
    (hq : (markFrom h met work)[q]? = some true) : R q := by
  induction met, work using markFrom.induct h with
  | case1 met =>
    rw [markFrom_nil] at hq
    exact hmet q hq
  | case2 met r rest hr ih =>
    have hlt : r < h.cells.size := hsize ▸ (Array.getElem?_eq_some_iff.mp hr).1
    have hR : R r := hwork r List.mem_cons_self hlt
    rw [markFrom_unmet hr] at hq
    refine ih ((Array.size_setIfInBounds ..).trans hsize) (fun q hq => ?_) (fun q hq hlt => ?_) hq
    · rw [getElem?_meet hr] at hq
      split at hq
      · next hrq => exact hrq ▸ hR
      · exact hmet q hq
    · rcases List.mem_append.mp hq with hq | hq
      · exact hclosed r q hR hq hlt
      · exact hwork q (List.mem_cons_of_mem _ hq) hlt
  | case3 met r rest hr ih =>
    rw [markFrom_met hr] at hq
    exact ih hsize hmet (fun q hq => hwork q (List.mem_cons_of_mem _ hq)) hq

/-- **Marking finds what is reachable**, and nothing else. -/
theorem mark_iff (h : Heap) (roots : List Ref) (r : Ref) :
    (h.mark roots)[r]? = some true ↔ Reachable h roots r := by
  have hsize : (Array.replicate h.cells.size false).size = h.cells.size := Array.size_replicate
  have hnone : ∀ q : Ref, (Array.replicate h.cells.size false)[q]? ≠ some true := by
    intro q hq
    rw [Array.getElem?_replicate] at hq
    split at hq <;> cases hq
  constructor
  · intro hr
    refine markFrom_inside (R := Reachable h roots) (fun q r hq hlink hlt => hq.link hlink hlt)
      hsize (fun q hq => absurd hq (hnone q)) (fun q hq hlt => .root hq hlt) hr
  · intro hr
    induction hr with
    | root hmem hlt => exact markFrom_meets hmem (Nat.lt_of_lt_of_eq hlt hsize.symm)
    | link _ hlink hlt ih =>
      rcases markFrom_closed ih with hmet | hlinks
      · exact absurd hmet (hnone _)
      · exact hlinks _ hlink (Nat.lt_of_lt_of_eq hlt hsize.symm)

instance (h : Heap) (roots : List Ref) (r : Ref) : Decidable (Reachable h roots r) :=
  decidable_of_iff _ (mark_iff h roots r)

end ScriptBoundary.Script
